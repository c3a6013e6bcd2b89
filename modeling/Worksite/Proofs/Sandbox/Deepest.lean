import Worksite.Proofs.Sandbox.Stability

/-!
The longest part of a path that leads somewhere. It is followed, and what is behind it stays as it
is written if all of it is missing; if a longer part is refused for another reason, so is the path.
-/
namespace Worksite.Sandbox

open FileTree

variable {t : FileTree} {names found rest place m m' l : Location} {x : String} {e e' : SystemError}

/-- The names are `found`, which leads to `place`, and `rest` behind it, and no longer part of them
leads anywhere. -/
structure Deepest (t : FileTree) (names found rest place : Location) : Prop where
  split : names = found ++ rest
  leads : t.canonical found = .ok place
  longest : ∀ m, m <+: rest → m ≠ [] → ∀ d, t.canonical (found ++ m) ≠ .ok d

/-- All that is longer than `found` is missing. -/
def Missed (t : FileTree) (found rest : Location) : Prop :=
  ∀ m, m <+: rest → m ≠ [] → t.canonical (found ++ m) = .error .noEntry

/-- Of the parts that are longer than `found`, the one with `m` behind it is the longest that is
refused for another reason than that it is missing. -/
structure Stopped (t : FileTree) (found rest m : Location) (e : SystemError) : Prop where
  isPrefix : m <+: rest
  ne_nil : m ≠ []
  refused : t.canonical (found ++ m) = .error e
  ne_noEntry : e ≠ .noEntry
  longest : ∀ m', m' <+: rest → m.length < m'.length →
    ∀ e', t.canonical (found ++ m') = .error e' → e' = .noEntry

/-- A path is resolved by its last name, and by what is above if that name is missing. -/
theorem existingPrefix_concat (t : FileTree) (l : Location) (x : String) :
    existingPrefix t (l ++ [x]).reverse =
      match t.canonical (l ++ [x]) with
      | .ok d => .ok d
      | .error .noEntry => (existingPrefix t l.reverse).map (· ++ [x])
      | .error e => .error e := by
  have hnames : (x :: l.reverse).reverse = l ++ [x] := by simp
  rw [List.reverse_concat]
  cases h : t.canonical (l ++ [x]) with
  | ok d => simp [existingPrefix, hnames, h]
  | error e => cases e <;> simp [existingPrefix, hnames, h]

theorem exists_deepest (t : FileTree) (names : Location) :
    ∃ found rest place, Deepest t names found rest place := by
  induction names using List.reverseRecOn with
  | nil =>
    refine ⟨[], [], [], rfl, rfl, fun m hm hne => ?_⟩
    exact absurd (List.prefix_nil.mp hm) hne
  | append_singleton names x ih =>
    cases hc : t.canonical (names ++ [x]) with
    | ok d =>
      refine ⟨names ++ [x], [], d, (List.append_nil _).symm, hc, fun m hm hne => ?_⟩
      exact absurd (List.prefix_nil.mp hm) hne
    | error e =>
      obtain ⟨found, rest, place, rfl, hleads, hlongest⟩ := ih
      refine ⟨found, rest ++ [x], place, List.append_assoc .., hleads, fun m hm hne => ?_⟩
      rcases List.prefix_concat_iff.mp hm with rfl | hm
      · simp [← List.append_assoc, hc]
      · exact hlongest m hm hne

theorem Deepest.above (h : Deepest t (found ++ (rest ++ [x])) found (rest ++ [x]) place) :
    Deepest t (found ++ rest) found rest place :=
  ⟨rfl, h.leads, fun m hm => h.longest m (hm.trans (List.prefix_append ..))⟩

theorem Stopped.concat (h : Stopped t found rest m e)
    (hmissing : t.canonical (found ++ (rest ++ [x])) = .error .noEntry) :
    Stopped t found (rest ++ [x]) m e := by
  refine ⟨h.isPrefix.trans (List.prefix_append ..), h.ne_nil, h.refused, h.ne_noEntry,
    fun m' hm' hlen e' he' => ?_⟩
  rcases List.prefix_concat_iff.mp hm' with rfl | hm'
  · exact Except.error.inj (he'.symm.trans hmissing)
  · exact h.longest m' hm' hlen e' he'

/-- Either all behind the part that is followed is missing and stays, or something longer is refused
and the whole path with it. -/
theorem Deepest.outcome (h : Deepest t names found rest place) :
    (Missed t found rest ∧ existingPrefix t names.reverse = .ok (place ++ rest)) ∨
      ∃ m e, Stopped t found rest m e ∧ existingPrefix t names.reverse = .error e := by
  obtain rfl := h.split
  induction rest using List.reverseRecOn with
  | nil =>
    refine .inl ⟨fun m hm hne => absurd (List.prefix_nil.mp hm) hne, ?_⟩
    rw [List.append_nil, List.append_nil]
    exact existingPrefix_of_canonical h.leads
  | append_singleton rest x ih =>
    have hconcat := existingPrefix_concat t (found ++ rest) x
    rw [List.append_assoc] at hconcat
    cases hc : t.canonical (found ++ (rest ++ [x])) with
    | ok d => exact absurd hc (h.longest _ (List.prefix_refl _) (by simp) d)
    | error e =>
      rw [hc] at hconcat
      by_cases he : e = .noEntry
      · -- the last name is missing, and the part above tells
        subst he
        rcases ih h.above with ⟨hmissed, hok⟩ | ⟨m, e, hstopped, herror⟩
        · refine .inl ⟨fun m hm hne => ?_, ?_⟩
          · rcases List.prefix_concat_iff.mp hm with rfl | hm
            · exact hc
            · exact hmissed m hm hne
          · rw [hconcat, hok, ← List.append_assoc]
            rfl
        · exact .inr ⟨m, e, hstopped.concat hc, by rw [hconcat, herror]; rfl⟩
      · refine .inr ⟨rest ++ [x], e, ⟨List.prefix_refl _, by simp, hc, he, ?_⟩, ?_⟩
        · intro m' hm' hlen
          exact absurd hm'.length_le (Nat.not_le_of_lt hlen)
        · rw [hconcat]
          cases e <;> first | exact absurd rfl he | rfl

theorem Stopped.not_missed (h : Stopped t found rest m e) : ¬ Missed t found rest := fun hmissed =>
  h.ne_noEntry (Except.error.inj (h.refused.symm.trans (hmissed m h.isPrefix h.ne_nil)))

/-- The longest refusal is told by its error. -/
theorem Stopped.unique (h : Stopped t found rest m e) (h' : Stopped t found rest m' e') :
    e = e' := by
  have hle : m.length = m'.length := by
    apply le_antisymm <;> by_contra! hlen
    · exact h.ne_noEntry (h'.longest m h.isPrefix hlen e h.refused)
    · exact h'.ne_noEntry (h.longest m' h'.isPrefix hlen e' h'.refused)
  obtain rfl : m = m' :=
    (List.prefix_of_prefix_length_le h.isPrefix h'.isPrefix hle.le).eq_of_length hle
  exact Except.error.inj (h.refused.symm.trans h'.refused)

/-- A path has a longest part that leads somewhere. The path is resolved just if all its longer
parts are missing, to the place of that part with the other names behind it as they are; it is
refused just if a longer part is refused for another reason, and then for that of the longest such
part. What it was resolved to is resolved to itself. -/
theorem existingPrefix_deepest (t : FileTree) (names : Location) :
    ∃ found rest place, Deepest t names found rest place ∧
      (∀ l, existingPrefix t names.reverse = .ok l ↔ l = place ++ rest ∧ Missed t found rest) ∧
      (∀ e, existingPrefix t names.reverse = .error e ↔ ∃ m, Stopped t found rest m e) ∧
      (t.NulFree → ∀ l, existingPrefix t names.reverse = .ok l →
        existingPrefix t l.reverse = .ok l) := by
  obtain ⟨found, rest, place, hdeepest⟩ := exists_deepest t names
  refine ⟨found, rest, place, hdeepest, fun l => ?_, fun e => ?_, fun hn l hl => ?_⟩
  · rcases hdeepest.outcome with ⟨hmissed, hok⟩ | ⟨m, e, hstopped, herror⟩
    · rw [hok, Except.ok.injEq, and_iff_left hmissed, eq_comm]
    · simp [herror, hstopped.not_missed]
  · rcases hdeepest.outcome with ⟨hmissed, hok⟩ | ⟨m, e', hstopped, herror⟩
    · simp only [hok, reduceCtorEq, false_iff, not_exists]
      exact fun m hm => hm.not_missed hmissed
    · rw [herror, Except.error.injEq]
      exact ⟨fun he => ⟨m, he ▸ hstopped⟩, fun ⟨_, h⟩ => hstopped.unique h⟩
  · exact existingPrefix_idem hl (nulFree_of_existingPrefix hn hl)

/-- A directory, an alias of it, a link to nothing, and a file. -/
def branching : FileTree where
  entries := [(["ws"], .directory), (["ws", "src"], .directory), (["ws", "alias"], .link "src"),
    (["ws", "src", "gone"], .link "nowhere"), (["ws", "src", "f"], .file .empty 0o644)]
  distinct := by decide

/-- Behind the alias a link to nothing stays as it is, and so does what is behind it; what is behind
a file is refused. -/
theorem existingPrefix_deepest_branching :
    branching.NulFree ∧
      existingPrefix branching ["x", "gone", "alias", "ws"] = .ok ["ws", "src", "gone", "x"] ∧
      existingPrefix branching ["x", "gone", "src", "ws"] = .ok ["ws", "src", "gone", "x"] ∧
      existingPrefix branching ["y", "x", "f", "src", "ws"] = .error .notDirectory := by
  have hn : branching.NulFree := by decide
  have hok : existingPrefix branching ["x", "gone", "alias", "ws"] =
      .ok ["ws", "src", "gone", "x"] := by cbv
  obtain ⟨-, -, -, -, -, -, hidem⟩ := existingPrefix_deepest branching ["ws", "alias", "gone", "x"]
  exact ⟨hn, hok, hidem hn _ hok, by cbv⟩

end Worksite.Sandbox
