import Worksite.Proofs.Path

/-!
Spellings of a path. What a path is folded to depends on its segments alone, one after the other,
so that blank segments, dots, climbs behind a name and the root written out change nothing.
-/
namespace Worksite.Path

variable {root l : Location} {a b path path' : String}

theorem segments_slash (a b : String) : segments (a ++ "/" ++ b) = segments a ++ segments b := by
  have hlist : (a ++ "/" ++ b).toList = a.toList ++ '/' :: b.toList := by simp
  rw [segments, hlist, List.splitOn_append_cons_self, List.map_append]
  rfl

/-- The steps that segments stand for, one by one. -/
def turns (segments : List String) : List Step := (segments.filter (· ≠ "")).map Step.ofSegment

theorem fold_filter (l : Location) (steps : List Step) :
    fold l (steps.filter (· ≠ .here)) = fold l steps := by
  fun_induction fold l steps with
  | case1 => rfl
  | case2 l rest ih => exact ih
  | case3 l rest hl =>
    rw [List.filter_cons_of_pos (by simp), fold, if_pos hl]
  | case4 l rest hl ih =>
    rw [List.filter_cons_of_pos (by simp), fold, if_neg hl]
    exact ih
  | case5 l s rest ih =>
    rw [List.filter_cons_of_pos (by simp), fold]
    exact ih

/-- The dots that the steps of a path leave out count for nothing. -/
theorem fold_steps (l : Location) (path : String) :
    fold l (steps path) = fold l (turns (segments path)) := by
  unfold steps turns
  simp only
  split
  · next rest hall =>
    rw [hall, fold]
    split_ifs
    · rw [fold, fold_filter]
    · exact fold_filter l rest
  · exact fold_filter l _

theorem fold_append (l : Location) (steps more : List Step) :
    fold l (steps ++ more) = (fold l steps).bind (fold · more) := by
  fun_induction fold l steps with
  | case1 => rfl
  | case2 l rest ih => exact ih
  | case3 l rest hl =>
    rw [List.cons_append, fold, if_pos hl]
    rfl
  | case4 l rest hl ih =>
    rw [List.cons_append, fold, if_neg hl]
    exact ih
  | case5 l s rest ih => exact ih

/-- A path that does not climb out of where it starts is folded to the same names everywhere. -/
theorem fold_append_left {l l' : Location} {steps : List Step} (root : Location)
    (h : fold l steps = some l') : fold (root ++ l) steps = some (root ++ l') := by
  fun_induction fold l steps with
  | case1 l =>
    obtain rfl := Option.some.inj h
    rfl
  | case2 l rest ih => exact ih h
  | case3 => simp at h
  | case4 l rest hl ih =>
    have hne : l ≠ [] := by simpa using hl
    rw [fold, if_neg (by simp [hne]), List.dropLast_append_of_ne_nil hne]
    exact ih h
  | case5 l s rest ih =>
    rw [fold, List.append_assoc]
    exact ih h

theorem fold_slash (l : Location) (a b : String) :
    fold l (steps (a ++ "/" ++ b)) = (fold l (steps a)).bind (fold · (steps b)) := by
  have hturns : turns (segments a ++ segments b) = turns (segments a) ++ turns (segments b) := by
    simp [turns]
  simp only [fold_steps, segments_slash, hturns, fold_append]

theorem isAbsolute_append (ha : a ≠ "") (b : String) : isAbsolute (a ++ b) = isAbsolute a := by
  have hne : a.toList ≠ [] := by simpa using ha
  obtain ⟨c, cs, hc⟩ := List.exists_cons_of_ne_nil hne
  simp [isAbsolute, hc]

/-- A path behind another is folded from where that one leads. -/
theorem locate_slash (ha : a ≠ "") (b : String) :
    locate root (a ++ "/" ++ b) = (locate root a).bind (fold · (steps b)) := by
  unfold locate
  rw [String.append_assoc, isAbsolute_append ha, ← String.append_assoc]
  split_ifs <;> exact fold_slash _ a b

theorem exists_of_endsWith_slash (h : a.endsWith "/") : ∃ b, a = b ++ "/" := by
  have hsuffix : "/".toList <:+ a.toList := by
    have hslice : a.toSlice.endsWith "/" = true := h
    rwa [String.Slice.endsWith_string_iff, String.copy_toSlice] at hslice
  obtain ⟨cs, hcs⟩ := hsuffix
  refine ⟨String.ofList cs, String.toList_inj.mp ?_⟩
  rw [String.toList_append, String.toList_ofList, hcs]

/-- A relative path below another is folded from where that one leads. -/
theorem locate_push (ha : a ≠ "") (hb : isAbsolute b = false) :
    locate root (push a b) = (locate root a).bind (fold · (steps b)) := by
  have hend (l : Location) (c : String) : fold l (steps (c ++ "/")) = fold l (steps c) := by
    have hslash := fold_slash l c ""
    rw [String.append_empty] at hslash
    exact hslash.trans (Option.bind_fun_some _)
  rw [push, hb, if_neg (by simp)]
  split_ifs with h
  · obtain ⟨c, rfl⟩ : ∃ c, a = c ++ "/" := exists_of_endsWith_slash (by simpa [ha] using h)
    unfold locate
    rw [isAbsolute_append ha, fold_slash, fold_slash, hend, hend]
    split_ifs <;> rfl
  · exact locate_slash ha b

/-- What stands behind a slash counts by what it is folded to. -/
theorem locate_slash_congr (a : String) (h : ∀ l, fold l (steps path) = fold l (steps path')) :
    locate root (a ++ "/" ++ path) = locate root (a ++ "/" ++ path') := by
  by_cases ha : a = ""
  · -- both begin with the slash
    subst ha
    have habs : ∀ b : String, isAbsolute ("" ++ "/" ++ b) = true := fun b => by simp [isAbsolute]
    rw [locate, locate, habs, habs, if_pos rfl, if_pos rfl, fold_slash, fold_slash]
    exact congrArg _ (funext h)
  · rw [locate_slash ha, locate_slash ha]
    exact congrArg _ (funext h)

theorem fold_name {name : String} (hn : IsNormal name) (l : Location) :
    fold l (steps name) = some (l ++ [name]) := by
  have htext : Location.relativeText [name] = name := by simp [Location.relativeText]
  have hsteps := steps_relativeText (l := [name]) (by simp) (List.forall_mem_singleton.mpr hn)
  rw [htext] at hsteps
  rw [hsteps]
  rfl

@[simp] theorem isAbsolute_absoluteText (l : Location) : isAbsolute l.absoluteText = true := by
  simp [isAbsolute, Location.absoluteText]

theorem absoluteText_eq (l : Location) : l.absoluteText = "" ++ "/" ++ l.relativeText := by
  simp [Location.absoluteText, Location.relativeText]

/-- The root itself is folded to where it is. -/
theorem locate_absoluteText (root : Location) (hn : ∀ s ∈ l, IsNormal s) :
    locate root l.absoluteText = some l := by
  rw [locate, isAbsolute_absoluteText, if_pos rfl]
  by_cases hl : l = []
  · subst hl
    rfl
  · have hblank : fold [] (steps "") = some [] := rfl
    rw [absoluteText_eq, fold_slash, hblank, Option.bind_some, steps_relativeText hl hn]
    exact fold_names [] l

/-- One way to write a path more plainly. -/
inductive Plainer (root : Location) : String → String → Prop where
  | dot (a b : String) : Plainer root (a ++ "/" ++ ("." ++ "/" ++ b)) (a ++ "/" ++ b)
  | slashes (a b : String) : Plainer root (a ++ "/" ++ ("" ++ "/" ++ b)) (a ++ "/" ++ b)
  | trailing {a : String} (ha : a ≠ "") : Plainer root (a ++ "/" ++ "") a
  /-- A name and the climb behind it, whatever the name stands for. -/
  | climb (a b : String) {name : String} (hn : IsNormal name) :
      Plainer root (a ++ "/" ++ (name ++ "/" ++ (".." ++ "/" ++ b))) (a ++ "/" ++ b)
  | absolute {path : String} (h : isAbsolute path = false) (hr : ∀ s ∈ root, IsNormal s) :
      Plainer root (root.absoluteText ++ "/" ++ path) path

/-- A path that is written more plainly is folded to the same. -/
theorem Plainer.locate_eq (h : Plainer root path path') : locate root path = locate root path' := by
  cases h with
  | dot a b =>
    apply locate_slash_congr
    intro l
    exact fold_slash l "." b
  | slashes a b =>
    apply locate_slash_congr
    intro l
    exact fold_slash l "" b
  | trailing ha =>
    rw [locate_slash ha]
    exact Option.bind_fun_some _
  | @climb a b name hn =>
    apply locate_slash_congr
    intro l
    have hup : fold (l ++ [name]) (steps "..") = some l := by
      have hsteps : steps ".." = [.up] := by decide
      simp [hsteps, fold]
    rw [fold_slash, fold_name hn, Option.bind_some, fold_slash, hup, Option.bind_some]
  | absolute h hr =>
    have hne : root.absoluteText ≠ "" := by
      simp [Location.absoluteText]
    rw [locate_slash hne, locate_absoluteText root hr, Option.bind_some, locate, h]
    rfl

end Worksite.Path
