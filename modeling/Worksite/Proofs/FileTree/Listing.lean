import Worksite.FileTree.Lookup
import Worksite.Proofs.ByteOrder
import Worksite.Proofs.FileTree.Entry
import Worksite.Proofs.Path

/-!
Listings: what stands below a root, in the order of the bytes of its names. The order by which a
tree shows its locations is that order.
-/
namespace Worksite

namespace Location

variable {l m : Location}

/-- The bytes of the names, from the root down. -/
def bytes (l : Location) : List (List UInt8) := l.map Text.bytes

theorem bytes_injective : Function.Injective bytes := Text.bytes_injective.list_map

theorem comesBefore_iff : l.comesBefore m ↔ l.bytes ≤ m.bytes := by
  induction l generalizing m with
  | nil => simp [comesBefore, bytes]
  | cons a l ih =>
    cases m with
    | nil => simp [comesBefore, bytes]
    | cons b m =>
      have hrec : comesBefore (a :: l) (b :: m) ↔ a < b ∨ a = b ∧ comesBefore l m := by
        simp [comesBefore]
      rw [hrec, ih, ← Text.bytes_lt_iff, ← Text.bytes_injective.eq_iff]
      exact List.cons_le_cons_iff.symm

theorem comesBefore_eq : comesBefore = fun l m => decide (l.bytes ≤ m.bytes) := by
  funext l m
  rw [Bool.eq_iff_iff, comesBefore_iff, decide_eq_true_iff]

theorem mergeSort_pairwise (ls : List Location) :
    (ls.mergeSort fun l m => decide (l.bytes ≤ m.bytes)).Pairwise fun l m => l.bytes ≤ m.bytes := by
  have htrans (a b c : Location) (hab : decide (a.bytes ≤ b.bytes))
      (hbc : decide (b.bytes ≤ c.bytes)) : decide (a.bytes ≤ c.bytes) := by
    rw [decide_eq_true_iff] at hab hbc ⊢
    exact Std.le_trans hab hbc
  have htotal (a b : Location) : decide (a.bytes ≤ b.bytes) || decide (b.bytes ≤ a.bytes) := by
    simpa using Std.le_total (a := a.bytes) (b := b.bytes)
  simpa only [decide_eq_true_eq] using List.pairwise_mergeSort htrans htotal ls

end Location

namespace FileTree

variable {t : FileTree} {root l : Location}

/-- Every entry has names that a directory can hold. -/
def Named (t : FileTree) : Prop :=
  ∀ e ∈ t.entries, ∀ x ∈ e.1, Path.IsNormal x ∧ x.utf8ByteSize ≤ maxName

instance (t : FileTree) : Decidable t.Named :=
  inferInstanceAs (Decidable (∀ e ∈ t.entries, ∀ x ∈ e.1, Path.IsNormal x ∧ _ ≤ maxName))

theorem Named.names (h : t.Named) (he : t.entry? l ≠ none) :
    ∀ x ∈ l, Path.IsNormal x ∧ x.utf8ByteSize ≤ maxName := by
  by_cases hl : l = []
  · simp [hl]
  · obtain ⟨e, he⟩ := Option.ne_none_iff_exists'.mp he
    exact h _ (mem_entries_of_eq_some hl he)

/-- The locations at or below a root where something stands that is no directory, in the order of
the bytes of their names. -/
def listing (t : FileTree) (root : Location) : List Location :=
  ((t.entries.map Prod.fst).filter fun l => root.isPrefixOf l && !t.isDirectory l).mergeSort
    fun (a b : Location) => decide (a.bytes ≤ b.bytes)

theorem mem_locations (hl : l ≠ []) : l ∈ t.entries.map Prod.fst ↔ t.entry? l ≠ none := by
  rw [List.mem_map]
  constructor
  · rintro ⟨⟨l, e⟩, he, rfl⟩
    simp [entry?_of_mem_entries hl he]
  · intro h
    obtain ⟨e, he⟩ := Option.ne_none_iff_exists'.mp h
    exact ⟨_, mem_entries_of_eq_some hl he, rfl⟩

theorem mem_listing :
    l ∈ t.listing root ↔ root <+: l ∧ ∃ e, t.entry? l = some e ∧ e ≠ .directory := by
  rw [listing, List.mem_mergeSort, List.mem_filter, Bool.and_eq_true, List.isPrefixOf_iff_prefix]
  by_cases hl : l = []
  · simp [hl, isDirectory_iff]
  · rw [mem_locations hl]
    cases he : t.entry? l with
    | none => simp
    | some e => simp [← Bool.not_eq_true, isDirectory_iff, he, and_comm]

theorem mem_below : l ∈ t.below root ↔ root <+: l ∧ t.entry? l ≠ none ∧ l ≠ root := by
  rw [below, List.mem_mergeSort, List.mem_filter, Bool.and_eq_true, List.isPrefixOf_iff_prefix,
    decide_eq_true_iff]
  by_cases hl : l = []
  · subst hl
    simp [eq_comm]
  · rw [mem_locations hl]
    tauto

theorem listing_pairwise (t : FileTree) (root : Location) :
    (t.listing root).Pairwise fun a b => a.bytes < b.bytes := by
  have hnodup : (t.listing root).Nodup :=
    (List.mergeSort_perm _ _).nodup_iff.mpr (t.distinct.filter _)
  refine (Location.mergeSort_pairwise _).imp₂ (fun a b hle hne => ?_) hnodup
  rcases Std.le_iff_lt_or_eq.mp hle with hlt | heq
  · exact hlt
  · exact absurd (Location.bytes_injective heq) hne

/-- A tree shows what stands below a directory in the order of a listing. -/
theorem filter_below (hd : t.isDirectory root) :
    (t.below root).filter (!t.isDirectory ·) = t.listing root := by
  have hperm : ((t.below root).filter (!t.isDirectory ·)).Perm (t.listing root) := by
    refine ((List.mergeSort_perm _ _).filter _).trans ?_
    refine List.Perm.trans (List.Perm.of_eq ?_) (List.mergeSort_perm _ _).symm
    rw [List.filter_filter]
    refine List.filter_congr fun l _ => ?_
    -- the root itself is a directory
    by_cases hl : l = root
    · simp [hl, hd]
    · simp [hl, Bool.and_comm]
  have hbelow : (t.below root).Pairwise fun a b => a.bytes ≤ b.bytes := by
    rw [below, Location.comesBefore_eq]
    exact Location.mergeSort_pairwise _
  exact hperm.eq_of_pairwise
    (fun a b _ _ hab hba => Location.bytes_injective (Std.le_antisymm hab hba))
    (hbelow.filter _) (Location.mergeSort_pairwise _)

end FileTree

end Worksite
