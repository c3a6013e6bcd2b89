import Mathlib
import Worksite.Pattern

/-!
Where matches end. From a spot a pattern ends nowhere but where reading on leads, so a match is a
piece of the text between two others.
-/
namespace Worksite

open String (utf8Len)

/-! ## Spots of a text -/

namespace Spot

/-- The spot between two parts of a text. -/
def between (read left : List Char) : Spot where
  before := read.getLast?
  after := left
  offset := utf8Len read

variable {read left : List Char} {s t : Spot} {c : Char}

/-- A spot that reading on from between two parts leads to. -/
def Onward (read left : List Char) (t : Spot) : Prop :=
  ∃ found after, left = found ++ after ∧ t = between (read ++ found) after

/-- What reading one more character leads to. -/
theorem next?_between_cons (read left : List Char) (c : Char) :
    (between read (c :: left)).next? = some (c, between (read ++ [c]) left) := by
  simp [between, next?]

theorem Onward.refl (read left : List Char) : Onward read left (between read left) :=
  ⟨[], left, rfl, by rw [List.append_nil]⟩

theorem Onward.next (hs : Onward read left s) (h : s.next? = some (c, t)) :
    Onward read left t := by
  obtain ⟨found, after, rfl, rfl⟩ := hs
  cases after with
  | nil => cases h
  | cons d after =>
    rw [next?_between_cons] at h
    obtain ⟨rfl, rfl⟩ := Prod.mk.inj (Option.some.inj h)
    exact ⟨found ++ [d], after, by simp, by rw [List.append_assoc]⟩

end Spot

namespace Pattern

/-! ## What a step keeps -/

section Steps

variable {step : Spot → List Spot} {P : Spot → Prop} {greedy : Bool} {s t : Spot}
  {spots : List Spot} {n : Nat}

theorem mem_of_mem_distinct (h : t ∈ distinct spots) : t ∈ spots := by
  refine List.foldlRecOn (motive := fun kept => ∀ u ∈ kept, u ∈ spots) spots _
    (fun u hu => absurd hu (by simp)) (fun kept hkept s hs u hu => ?_) t h
  split_ifs at hu
  · exact hkept u hu
  · rcases List.mem_append.mp hu with hu | hu
    · exact hkept u hu
    · exact List.mem_singleton.mp hu ▸ hs

/-- Greed only decides whether the spot itself comes last or first. -/
theorem mem_of_mem_greedy (h : t ∈ if greedy then spots ++ [s] else s :: spots) :
    t = s ∨ t ∈ spots := by
  cases greedy with
  | true => exact (List.mem_append.mp h).symm.imp_left List.mem_singleton.mp
  | false => exact List.mem_cons.mp h

variable (hstep : ∀ s, P s → ∀ t ∈ step s, P t)
include hstep

theorem iterate_keeps (hs : ∀ s ∈ spots, P s) : ∀ t ∈ iterate step n spots, P t := by
  induction n generalizing spots with
  | zero => exact hs
  | succ n ih =>
    refine ih fun t ht => ?_
    obtain ⟨s, hmem, ht⟩ := List.mem_flatMap.mp (mem_of_mem_distinct ht)
    exact hstep s (hs s hmem) t ht

theorem within_keeps (hs : P s) : ∀ t ∈ within step greedy n s, P t := by
  induction n generalizing s with
  | zero =>
    intro t ht
    exact List.mem_singleton.mp ht ▸ hs
  | succ n ih =>
    intro t ht
    rcases mem_of_mem_greedy (mem_of_mem_distinct ht) with rfl | ht
    · exact hs
    · obtain ⟨u, hu, ht⟩ := List.mem_flatMap.mp ht
      exact ih (hstep s hs u hu) t ht

theorem explore_keeps {seen : List Nat} (hs : P s) :
    ∀ t ∈ (explore step greedy n seen s).2, P t := by
  induction n generalizing seen s with
  | zero =>
    intro t ht
    cases ht
  | succ n ih =>
    intro t ht
    by_cases hseen : s.offset ∈ seen
    · rw [explore, if_pos hseen] at ht
      cases ht
    · rw [explore, if_neg hseen] at ht
      rcases mem_of_mem_greedy ht with rfl | ht
      · exact hs
      · -- what has been found is kept, step after step
        refine List.foldlRecOn (motive := fun state : List Nat × List Spot => ∀ u ∈ state.2, P u)
          (step s) _ (fun u hu => absurd hu (by simp)) (fun state hstate v hv => ?_) t ht
        exact List.forall_mem_append.mpr ⟨hstate, ih (hstep s hs v hv)⟩

theorem onwards_keeps (hs : P s) : ∀ t ∈ onwards step greedy s, P t := by
  intro t ht
  refine List.foldlRecOn (motive := fun state : List Nat × List Spot => ∀ u ∈ state.2, P u)
    (step s) _ (fun u hu => absurd hu (by simp)) (fun state hstate v hv => ?_) t
    (mem_of_mem_distinct ht)
  have hv := hstep s hs v hv
  split_ifs
  · exact List.forall_mem_append.mpr ⟨hstate, List.forall_mem_singleton.mpr hv⟩
  · exact List.forall_mem_append.mpr ⟨hstate, explore_keeps hstep hv⟩

end Steps

theorem mem_ends_set {cs : CharSet} {s t : Spot} :
    t ∈ (set cs).ends s ↔ ∃ c, s.next? = some (c, t) ∧ cs.has c := by
  rw [ends]
  cases s.next? with
  | none => simp
  | some next =>
    obtain ⟨c, u⟩ := next
    simp only [List.mem_ite_nil_right, List.mem_singleton, Option.some.injEq, Prod.mk.injEq]
    constructor
    · rintro ⟨hc, rfl⟩
      exact ⟨c, ⟨rfl, rfl⟩, hc⟩
    · rintro ⟨_, ⟨rfl, rfl⟩, hc⟩
      exact ⟨hc, rfl⟩

/-- What the next spot keeps, all ends of a pattern keep. -/
theorem ends_keep {P : Spot → Prop} (hnext : ∀ s c t, P s → s.next? = some (c, t) → P t)
    (p : Pattern) : ∀ s, P s → ∀ t ∈ p.ends s, P t := by
  induction p with
  | empty =>
    intro s hs t ht
    exact List.mem_singleton.mp ht ▸ hs
  | set cs =>
    intro s hs t ht
    obtain ⟨c, hc, -⟩ := mem_ends_set.mp ht
    exact hnext s c t hs hc
  | look l =>
    intro s hs t ht
    rw [ends] at ht
    split_ifs at ht
    · exact List.mem_singleton.mp ht ▸ hs
    · cases ht
  | seq p q ihp ihq =>
    intro s hs t ht
    obtain ⟨u, hu, ht⟩ := List.mem_flatMap.mp (mem_of_mem_distinct ht)
    exact ihq u (ihp s hs u hu) t ht
  | alt p q ihp ihq =>
    intro s hs t ht
    rcases List.mem_append.mp (mem_of_mem_distinct ht) with ht | ht
    · exact ihp s hs t ht
    · exact ihq s hs t ht
  | times n p ih =>
    intro s hs
    exact iterate_keeps ih fun u hu => List.mem_singleton.mp hu ▸ hs
  | upTo n greedy p ih => exact fun s hs => within_keeps ih hs
  | plus greedy p ih => exact fun s hs => onwards_keeps ih hs

/-- The ends of a pattern between two parts of a text. -/
theorem onward_of_mem_ends {p : Pattern} {read left : List Char} {t : Spot}
    (h : t ∈ p.ends (.between read left)) : Spot.Onward read left t :=
  ends_keep (fun _ _ _ => Spot.Onward.next) p _ (.refl read left) t h

/-! ## Matches -/

section Matches

variable {p : Pattern} {start : Nat} {lastEnd : Option Nat} {read left text : List Char} {m : Span}

/-- One step of looking for matches: a match that starts at the spot, if one is found there, and
those that are found behind the next character. -/
theorem exists_matchesFrom_eq (p : Pattern) (start : Nat) (lastEnd : Option Nat)
    (before : Option Char) (offset : Nat) (left : List Char) :
    ∃ found : Option Span,
      (∀ m, found = some m → start ≤ offset ∧ m.first = { before, after := left, offset } ∧
        m.last ∈ p.ends m.first) ∧
      p.matchesFrom start lastEnd before offset left = found.toList ++
        match left with
        | [] => []
        | c :: rest =>
          match found with
          | some m =>
            p.matchesFrom m.last.offset (some m.last.offset) (some c) (offset + c.utf8Size) rest
          | none => p.matchesFrom start lastEnd (some c) (offset + c.utf8Size) rest := by
  rw [matchesFrom.eq_def]
  dsimp -zeta only
  extract_lets s found
  refine ⟨found.map fun t => { first := s, last := t }, fun m hm => ?_, ?_⟩
  · obtain ⟨t, ht, rfl⟩ := Option.map_eq_some_iff.mp hm
    simp only [found] at ht
    split_ifs at ht with hstart
    refine ⟨Nat.not_lt.mp hstart, rfl, ?_⟩
    split at ht
    · next u hu =>
      split_ifs at ht
      exact Option.some.inj ht ▸ List.mem_of_head? hu
    · cases ht
  · cases left with
    | nil => cases found <;> rfl
    | cons c rest => cases found <;> rfl

/-- A match starts at the spot that is looked at, or is looked for behind the next character. -/
theorem mem_matchesFrom {before : Option Char} {offset : Nat}
    (h : m ∈ p.matchesFrom start lastEnd before offset left) :
    m.first = { before, after := left, offset } ∧ m.last ∈ p.ends m.first ∨
      ∃ c rest start' lastEnd', left = c :: rest ∧
        m ∈ p.matchesFrom start' lastEnd' (some c) (offset + c.utf8Size) rest := by
  obtain ⟨found, hfound, heq⟩ := exists_matchesFrom_eq p start lastEnd before offset left
  rw [heq, List.mem_append, Option.mem_toList] at h
  rcases h with h | h
  · exact .inl (hfound m h).2
  · right
    cases left with
    | nil => cases h
    | cons c rest =>
      cases found with
      | none => exact ⟨c, rest, _, _, rfl, h⟩
      | some m' => exact ⟨c, rest, _, _, rfl, h⟩

theorem exists_of_mem_matchesFrom
    (h : m ∈ p.matchesFrom start lastEnd read.getLast? (utf8Len read) left) :
    ∃ passed rest, left = passed ++ rest ∧ m.first = .between (read ++ passed) rest ∧
      m.last ∈ p.ends m.first := by
  induction left generalizing read start lastEnd with
  | nil =>
    rcases mem_matchesFrom h with ⟨hfirst, hlast⟩ | ⟨c, rest, _, _, hnil, -⟩
    · exact ⟨[], [], rfl, by rw [hfirst, List.append_nil]; rfl, hlast⟩
    · cases hnil
  | cons c left ih =>
    rcases mem_matchesFrom h with ⟨hfirst, hlast⟩ | ⟨_, _, _, _, hcons, h⟩
    · exact ⟨[], c :: left, rfl, by rw [hfirst, List.append_nil]; rfl, hlast⟩
    · obtain ⟨rfl, rfl⟩ := List.cons.inj hcons
      have hlast : some c = (read ++ [c]).getLast? := by simp
      have hlen : utf8Len read + c.utf8Size = utf8Len (read ++ [c]) := by simp
      rw [hlast, hlen] at h
      obtain ⟨passed, rest, rfl, hfirst, hlast⟩ := ih h
      exact ⟨c :: passed, rest, rfl, by rw [hfirst]; simp, hlast⟩

/-- A match in a text that is not empty is a piece of it, and the pattern matches there. -/
theorem exists_of_mem_allMatches (h : m ∈ p.allMatches text) (hm : m.isEmpty = false) :
    ∃ before found after, text = before ++ found ++ after ∧ found ≠ [] ∧
      m.first = .between before (found ++ after) ∧ m.last = .between (before ++ found) after ∧
      m.last ∈ p.ends m.first := by
  have h : m ∈ p.matchesFrom 0 none (List.getLast? []) (utf8Len []) text := h
  obtain ⟨before, rest, rfl, hfirst, hends⟩ := exists_of_mem_matchesFrom h
  rw [hfirst] at hends
  obtain ⟨found, after, rfl, hlast⟩ := onward_of_mem_ends hends
  refine ⟨before, found, after, (List.append_assoc ..).symm, ?_, hfirst, hlast, hfirst ▸ hends⟩
  rintro rfl
  simp [Span.isEmpty, hfirst, hlast] at hm

/-! ### Their order -/

end Matches

end Pattern

end Worksite
