import Worksite.Proofs.Toml.Document

/-!
Documents without some of their tables and keys. A reader that has a default for each key does not
notice, as long as what is left out held the default.
-/
namespace Worksite.Toml

open Printer (Scalar Section)

variable {α β : Type} {k name : String} {a default : α} {read : Toml → Option α}
  {gone : String → Bool} {lines defaults : List (String × Scalar)} {xs : List Section}

/-- The tables that are left out, and the keys that are left out of each table. -/
structure Omission where
  tables : String → Bool
  keys : String → String → Bool

namespace Omission

variable {o : Omission}

/-- Whether a key is left out, by itself or with its table. -/
def covers (o : Omission) (name k : String) : Bool := o.tables name || o.keys name k

/-- What is left of a section. -/
def thin (o : Omission) (x : Section) : Section :=
  { x with lines := x.lines.filter fun l => !o.keys x.name l.1 }

/-- What is left of some sections. -/
def left (o : Omission) (xs : List Section) : List Section :=
  (xs.filter fun x => !o.tables x.name).map o.thin

theorem mem_left {y : Section} : y ∈ o.left xs ↔ ∃ x ∈ xs, !o.tables x.name ∧ o.thin x = y := by
  simp [left, and_assoc]

def nothing : Omission := ⟨fun _ => false, fun _ _ => false⟩

theorem left_nothing (xs : List Section) : nothing.left xs = xs := by
  have hthin : thin nothing = id := by
    funext x
    simp [thin, nothing]
  rw [left, hthin, List.map_id]
  simp [nothing]

end Omission

theorem Printer.Sound.left (h : Printer.Sound xs) (o : Omission) : Printer.Sound (o.left xs) where
  names := by
    have hnames : (o.left xs).map (·.name) =
        (xs.filter fun x => !o.tables x.name).map (·.name) := by
      simp [Omission.left, Omission.thin]
    rw [hnames]
    exact h.names.sublist (List.filter_sublist.map _)
  keys y hy := by
    obtain ⟨x, hx, -, rfl⟩ := Omission.mem_left.mp hy
    exact (h.keys x hx).sublist (List.filter_sublist.map _)
  bare y hy := by
    obtain ⟨x, hx, -, rfl⟩ := Omission.mem_left.mp hy
    obtain ⟨hname, hkeys⟩ := h.bare x hx
    exact ⟨hname, fun k hk => hkeys k ((List.filter_sublist.map _).subset hk)⟩
  fits y hy l hl := by
    obtain ⟨x, hx, -, rfl⟩ := Omission.mem_left.mp hy
    exact h.fits x hx l (List.mem_of_mem_filter hl)

/-! ## Fields -/

theorem lookup_left (items : List β) (key : β → String) (value : β → Toml) (k : String) :
    ((items.filter fun x => !gone (key x)).map fun x => (key x, value x)).lookup k =
      if gone k then none else (items.find? (key · = k)).map value := by
  induction items with
  | nil => simp
  | cons x items ih =>
    by_cases hk : key x = k
    · subst hk
      cases hgone : gone (key x) with
      | false => simp [hgone]
      | true => simpa [hgone] using ih
    · have hne : (k == key x) = false := beq_false_of_ne (Ne.symm hk)
      cases hgone : gone (key x) <;> simp [hgone, hk, hne, List.lookup_cons, ih]

/-- A field that is there is read, and one that is left out has its default. -/
theorem field?_left {x : β} {items : List β} (key : β → String) (value : β → Toml)
    (hfind : items.find? (key · = k) = some x)
    (hread : gone k = false → read (value x) = some a) (hgone : gone k = true → a = default) :
    field? ((items.filter fun x => !gone (key x)).map fun x => (key x, value x)) k default read =
      some a := by
  rw [field?, lookup_left, hfind]
  cases h : gone k with
  | false => exact hread h
  | true => exact congrArg some (hgone h).symm

/-- What the lines of a table that are left are read as. -/
def remaining (gone : String → Bool) (lines : List (String × Scalar)) : List (String × Toml) :=
  (lines.filter fun l => !gone l.1).map fun l => (l.1, l.2.value)

theorem fields?_table {names : List String} {m : List (String × Toml)}
    (h : ∀ x ∈ m, x.1 ∈ names) : fields? names (.table m) = some m := by
  rw [fields?, if_pos]
  exact List.all_eq_true.mpr fun x hx => by simp [h x hx]

/-- Leaving out lines brings no key that the table has not. -/
theorem fields?_remaining {names : List String} (h : lines.map Prod.fst = names) :
    fields? names (.table (remaining gone lines)) = some (remaining gone lines) := by
  refine fields?_table fun m hm => ?_
  obtain ⟨l, hl, rfl⟩ := List.mem_map.mp hm
  exact h ▸ List.mem_map_of_mem (List.mem_of_mem_filter hl)

/-- The line of a key. -/
def line? (lines : List (String × Scalar)) (k : String) : Option (String × Scalar) :=
  lines.find? (·.1 = k)

/-- A line of a table, read or missing, if the reader takes back what the table writes. -/
theorem field?_remaining {write : α → Scalar} (hread : ∀ a, read (write a).value = some a)
    (hline : line? lines k = some (k, write a))
    (hdefault : line? defaults k = some (k, write default))
    (h : ∀ k, gone k = true → line? lines k = line? defaults k) :
    field? (remaining gone lines) k default read = some a := by
  refine field?_left Prod.fst (fun l => l.2.value) hline (fun _ => hread a) fun hgone => ?_
  have hsame : write a = write default := by simpa [hline, hdefault] using h k hgone
  have hback := hread a
  rw [hsame, hread default] at hback
  exact (Option.some.inj hback).symm

/-! ## Tables -/

/-- Whether a table is read the same without lines that are those of its default. -/
def Tolerant (lines : α → List (String × Scalar)) (default : α) (read : Toml → Option α) : Prop :=
  ∀ a gone, (∀ k, gone k = true → line? (lines a) k = line? (lines default) k) →
    read (.table (remaining gone (lines a))) = some a

variable {write : α → List (String × Scalar)}

/-- A table whose lines are all those of its default is its default. -/
theorem Tolerant.eq_default (h : Tolerant write default read)
    (hsame : ∀ k, line? (write a) k = line? (write default) k) : a = default := by
  -- left out altogether, the lines of both tables are read as the same value
  have hempty (lines : List (String × Scalar)) : remaining (fun _ => true) lines = [] := by
    simp [remaining]
  have hread := h a (fun _ => true) fun k _ => hsame k
  have hdefault := h default (fun _ => true) fun _ _ => rfl
  rw [hempty] at hread hdefault
  exact Option.some.inj (hread.symm.trans hdefault)

/-- A tolerant table of a document, read or missing. -/
theorem Tolerant.field? (h : Tolerant write default read) {o : Omission}
    (hsection : xs.find? (·.name = name) = some ⟨name, write a⟩)
    (hsame : ∀ k, o.covers name k = true → line? (write a) k = line? (write default) k) :
    Toml.field? ((o.left xs).map Section.value) name default read = some a := by
  have hvalues : (o.left xs).map Section.value = (xs.filter fun x => !o.tables x.name).map
      fun x => (x.name, Toml.table (remaining (o.keys x.name) x.lines)) := by
    simp [Omission.left, Omission.thin, Section.value, remaining]
  rw [hvalues]
  refine field?_left Section.name (fun x => .table (remaining (o.keys x.name) x.lines)) hsection
    ?_ ?_
  · exact fun _ => h a (o.keys name) fun k hk => hsame k (by simp [Omission.covers, hk])
  · exact fun hgone => h.eq_default fun k => hsame k (by simp [Omission.covers, hgone])

/-- Leaving out tables brings none that the document has not. -/
theorem fields?_left {names : List String} (h : xs.map (·.name) = names) (o : Omission) :
    fields? names (.table ((o.left xs).map Section.value)) =
      some ((o.left xs).map Section.value) := by
  refine fields?_table fun m hm => ?_
  obtain ⟨y, hy, rfl⟩ := List.mem_map.mp hm
  obtain ⟨x, hx, -, rfl⟩ := Omission.mem_left.mp hy
  have hname : x.name ∈ xs.map (·.name) := List.mem_map_of_mem hx
  exact h ▸ hname

end Worksite.Toml
