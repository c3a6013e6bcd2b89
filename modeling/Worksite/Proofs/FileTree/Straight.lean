import Worksite.Proofs.FileTree.Canonical
import Worksite.Proofs.Outcome

/-!
Straight locations: no part of them leads anywhere else, so that what is done at one is done
there. A straight location stays straight while the directories that it needs are made.
-/
namespace Worksite.FileTree

variable {t t' : FileTree} {l p q d : Location} {s : String} {last : Bool} {n : Nat}
  {rest : List String} {e : SystemError}

/-- No part of the location leads anywhere else. -/
def Straight (t : FileTree) (l : Location) : Prop :=
  ∀ q, q <+: l → ∀ d, t.follow true maxLinks [] q = .ok d → d = q

theorem Canonical.straight (h : t.Canonical l) : t.Straight l := by
  intro q hq d hd
  rw [follow_canonical (h.of_prefix hq)] at hd
  exact (Except.ok.inj hd).symm

theorem Straight.of_prefix (h : t.Straight l) (hq : q <+: l) : t.Straight q :=
  fun p hp => h p (hp.trans hq)

/-- A canonical location and names behind it of which the first leads nowhere. -/
theorem straight_of_missing (h : t.Canonical l) (hm : t.follow true maxLinks l [s] = .error e) :
    t.Straight (l ++ s :: rest) := by
  intro q hq d hd
  rcases List.prefix_or_prefix_of_prefix hq (List.prefix_append l _) with hq | ⟨r, rfl⟩
  · exact h.straight q hq d hd
  · have hr' : ∀ m, t.follow true maxLinks l (s :: m) = .error e := by
      intro m
      cases m with
      | nil => exact hm
      | cons => exact follow_append_of_error (by simp) hm
    rcases r with - | ⟨x, m⟩
    · simpa [follow_canonical h] using hd.symm
    · obtain ⟨rfl, -⟩ := List.cons_prefix_cons.mp ((List.prefix_append_right_inj l).mp hq)
      have hf : t.follow true maxLinks [] (l ++ x :: m) =
          t.follow true maxLinks ([] ++ l) (x :: m) := follow_of_canonical h (x :: m)
      rw [hf, List.nil_append, hr'] at hd
      simp at hd

/-- Names behind a directory of which the first has no entry. -/
theorem follow_absent (hd : t.isDirectory l) (hs : Path.IsName s)
    (ha : t.entry? (l ++ [s]) = none) : t.follow last n l (s :: rest) =
      .error (if maxName < s.utf8ByteSize then .nameTooLong else .noEntry) := by
  rw [follow, course]
  by_cases hlen : maxName < s.utf8ByteSize <;>
    simp [hd, hs.1, hs.2.1, hs.2.2, hlen, ha]

/-- Making a directory on the way to a straight location. -/
theorem Straight.put (h : t.Closed) (hc : t.Canonical p) (hd : t.isDirectory p)
    (hlen : s.utf8ByteSize ≤ maxName) (ha : t.entry? (p ++ [s]) = none)
    (hn : ∀ x ∈ l, Path.IsName x) (hl : p ++ [s] <+: l) :
    (t.put (p ++ [s]) .directory).Straight l := by
  have hsame : ∀ q, q <+: p → entry? (t.put (p ++ [s]) .directory) q = t.entry? q := by
    intro q hq
    refine entry?_put_of_ne ?_
    rintro rfl
    have := hq.length_le
    simp only [List.length_append, List.length_singleton] at this
    omega
  have hself : entry? (t.put (p ++ [s]) .directory) (p ++ [s]) = some .directory :=
    entry?_put_self (by simp)
  have hp : (t.put (p ++ [s]) .directory).Canonical p := hc.congr hsame
  have hps : (t.put (p ++ [s]) .directory).Canonical (p ++ [s]) := by
    refine hp.concat ?_ (hn s (hl.subset (by simp))) hlen ⟨_, hself, by simp⟩
    rw [isDirectory_iff, hsame p (List.prefix_refl p)]
    exact isDirectory_iff.mp hd
  obtain ⟨m, rfl⟩ := hl
  cases m with
  | nil => simpa using hps.straight
  | cons x m =>
    -- nothing stood below the new directory, and it is still empty
    have hne : p ++ [s] ++ [x] ≠ p ++ [s] := by simp
    have hx : entry? (t.put (p ++ [s]) .directory) (p ++ [s] ++ [x]) = none := by
      rw [entry?_put_of_ne hne]
      exact h.absent_of_absent ha (List.prefix_append _ _)
    exact straight_of_missing hps
      (follow_absent (isDirectory_iff.mpr hself) (hn x (by simp)) hx)

/-! ## What is found, and the seats of changes -/

theorem find_eq_ok {x : Entry} : t.find last l = .ok x ↔
    checkPath l = .ok () ∧ ∃ d, t.follow last maxLinks [] l = .ok d ∧ t.entry? d = some x := by
  unfold find
  constructor
  · intro h
    obtain ⟨⟨⟩, hc, h⟩ := bind_eq_ok.mp h
    obtain ⟨d, hd, h⟩ := bind_eq_ok.mp h
    refine ⟨hc, d, hd, ?_⟩
    split at h
    · next he => rw [he, Except.ok.inj h]
    · simp at h
  · rintro ⟨hc, d, hd, he⟩
    simp [hc, hd, he]

theorem leadsToDirectory_eq : t.leadsToDirectory l ↔ t.find true l = .ok .directory := by
  unfold leadsToDirectory
  split <;> simp_all

/-- What a straight location leads to stands there. -/
theorem Straight.find_eq_ok {x : Entry} (h : t.Straight l) (hf : t.find true l = .ok x) :
    checkPath l = .ok () ∧ t.Canonical l ∧ t.entry? l = some x := by
  obtain ⟨hc, d, hd, hx⟩ := FileTree.find_eq_ok.mp hf
  obtain rfl := h l (List.prefix_refl l) d hd
  exact ⟨hc, canonical_of_follow (canonical_nil t) hd, hx⟩

theorem Canonical.find (h : t.Canonical l) (hp : checkPath l = .ok ()) {x : Entry}
    (hx : t.entry? l = some x) : t.find last l = .ok x :=
  find_eq_ok.mpr ⟨hp, l, follow_canonical h, hx⟩

theorem seat_eq_ok (h : t.Straight l.dropLast) (hp : t.seat l = .ok p) :
    p = l ∧ t.Canonical l.dropLast ∧ t.isDirectory l.dropLast ∧ checkPath l = .ok () ∧
      ∀ s, l.getLast? = some s → s.utf8ByteSize ≤ maxName := by
  obtain ⟨⟨⟩, hc, hp⟩ := bind_eq_ok.mp hp
  obtain ⟨d, hf, hp⟩ := bind_eq_ok.mp hp
  obtain rfl := h _ (List.prefix_refl _) d hf
  split_ifs at hp with hd hlen
  refine ⟨?_, canonical_of_follow (canonical_nil t) hf, by simpa using hd, hc, fun s hs => ?_⟩
  · rw [← Except.ok.inj hp]
    cases l using List.reverseRecOn <;> simp
  · simpa [hs] using hlen

/-- The seat of a name in a canonical directory. -/
theorem seat_concat (h : t.Canonical d) (hd : t.isDirectory d) (s : String) :
    t.seat (d ++ [s]) = checkPath (d ++ [s]) >>= fun _ =>
      if maxName < s.utf8ByteSize then .error .nameTooLong else .ok (d ++ [s]) := by
  simp [seat, follow_canonical h, hd]

end Worksite.FileTree
